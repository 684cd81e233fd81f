import PosFirmware.Contactless.Exchange

/-!
# The contactless exchange comes to an end

The retry counters bound transmission errors and R-blocks. Nothing bounds three kinds
of answers: return codes the exchange does not look at, chained I-blocks, and waiting
time requests where no limit is configured. An exchange that gets finitely many of
these returns (`exchange_returns`); one that gets only waiting time requests never does
(`exchange_waits`).
-/

namespace PosFirmware.Contactless

open PosFirmware.Foundation

variable {para : PiccPara} {pcd : PcdInfo} {command : List Byte} {answers : Nat → Answer}

/-- The first byte of the receive buffer after a number of answers: an answer without
a byte leaves it as it is. -/
def heldByte (first : Byte) (answers : Nat → Answer) : Nat → Byte
  | 0 => first
  | n + 1 =>
    if (answers n).rev = 0 ∧ 0 < (answers n).num then (answers n).data 0
    else heldByte first answers n

/-- An answer that no counter of the exchange counts. -/
def Lingering (para : PiccPara) (held : Byte) (answer : Answer) : Prop :=
  commError answer.rev ≠ true ∧ answer.rev ≠ 0 ∨
  answer.rev = 0 ∧ (held = 0x12 ∨ held = 0x13) ∨
  answer.rev = 0 ∧ held = 0xF2 ∧ para.limited ≠ true

/-! ## The measure -/

/-- A block was received and not worked on yet. -/
def ExcStep.received : ExcStep → Nat
  | .rcvIBlock | .rcvRBlock | .rcvSBlock => 1
  | _ => 0

/-- A block is to be sent. -/
def ExcStep.sending : ExcStep → Nat
  | .orgIBlock | .orgAckBlock | .orgNackBlock | .orgSBlock | .orgTraRcv => 1
  | _ => 0

/-- Rounds a stage is away from the next transmission or the end. -/
def ExcStep.rank : ExcStep → Nat
  | .rcvIBlock | .rcvRBlock | .rcvSBlock => 2
  | .orgIBlock | .orgAckBlock | .orgNackBlock | .orgSBlock | .rcvInvBlock => 1
  | .orgTraRcv | .nonEvent => 0

/-- Command bytes the card has not acknowledged. -/
def unsent (s : Exchange) : Nat :=
  if s.step = .orgIBlock then s.iTxNum else s.iTxNum + s.iTxCn

/-- Transmissions until the last lingering answer. -/
def lingering (last : Nat) (s : Exchange) : Nat :=
  if s.transceptions ≤ last then 2 * (last - s.transceptions) + 1 + s.step.received else 0

/-- Bytes, retransmissions and errors left. -/
def effort (s : Exchange) : Nat :=
  160 * unsent s + 40 * (3 - s.iIRetry) + 20 * s.step.sending + 4 * (4 - s.iErrRetry) +
    s.step.rank

/-- What every round lowers, in lexicographic order. -/
def remaining (para : PiccPara) (last : Nat) (s : Exchange) : Nat × Nat × Nat :=
  (lingering last s, para.waitRetryLimitVal - s.swtLimitCount, effort s)

/-- The lexicographic order of the measure. -/
def Less : Nat × Nat × Nat → Nat × Nat × Nat → Prop :=
  Prod.Lex (· < ·) (Prod.Lex (· < ·) (· < ·))

theorem less_wf : WellFounded Less :=
  WellFounded.prod_lex Nat.lt_wfRel.wf (WellFounded.prod_lex Nat.lt_wfRel.wf Nat.lt_wfRel.wf)

theorem less_iff {a b c a' b' c' : Nat} :
    Less (a', b', c') (a, b, c) ↔ a' < a ∨ a' = a ∧ (b' < b ∨ b' = b ∧ c' < c) := by
  simp only [Less, Prod.lex_def]

/-! ## The invariant -/

/-- What holds in every round, `last` being the place of the last lingering answer. -/
structure Ending (para : PiccPara) (first : Byte) (answers : Nat → Answer) (last : Nat)
    (s : Exchange) : Prop where
  /-- The receive buffer holds the first byte of the last block. -/
  held : s.rxBuf 0 = heldByte first answers s.transceptions
  /-- The frame size leaves room for information. -/
  room : 16 ≤ s.pcd.uiFsc
  /-- A chained I-block has information. -/
  chunk : s.pcd.ucPcdPcb &&& CHAINED ≠ 0 → s.step ≠ .orgIBlock → 0 < s.iTxCn
  /-- A waiting time request is worked on below the limit. -/
  limit : s.step = .rcvSBlock → para.limited = true →
    s.swtLimitCount < para.waitRetryLimitVal
  /-- After the last lingering answer no chained I-block is worked on. -/
  chain : s.step = .rcvIBlock → last < s.transceptions → s.rxBuf 0 &&& CHAINED = 0
  /-- After it a waiting time request is worked on only under a limit. -/
  wait : s.step = .rcvSBlock → last < s.transceptions → s.rxBuf 0 &&& 0xF7 = 0xF2 →
    para.limited = true

theorem iTxLmt_pos {pcd : PcdInfo} (room : 16 ≤ pcd.uiFsc) : 0 < iTxLmt pcd := by
  unfold iTxLmt
  split <;> split <;> omega

theorem sent_held {first : Byte} {s : Exchange}
    (held : s.rxBuf 0 = heldByte first answers s.transceptions) :
    (sent (answers s.transceptions) s).rxBuf 0 =
      heldByte first answers (s.transceptions + 1) := by
  rw [heldByte]
  simp only [sent, pcdTransCeive]
  by_cases good : (answers s.transceptions).rev = 0
  · by_cases some : 0 < (answers s.transceptions).num
    · simp [good, some]
    · simp [good, some, held]
  · simp [good, held]

theorem Ending.start (rxBuf : Nat → Byte) (last : Nat) :
    Ending para (rxBuf 0) answers last (startExchange pcd command rxBuf) where
  held := rfl
  room := by
    simp only [startExchange]
    split <;> omega
  chunk := fun _ other => absurd rfl other
  limit := nofun
  chain := nofun
  wait := nofun

theorem Ending.traRcv {first : Byte} {last : Nat} {s after : Exchange}
    (inv : Ending para first answers last s) (sending : s.step = .orgTraRcv)
    (rare : ∀ n, last ≤ n → ¬ Lingering para (heldByte first answers (n + 1)) (answers n))
    (ends : TraRcv para (answers s.transceptions) s after) :
    Ending para first answers last after := by
  have held := @sent_held answers first s inv.held
  have chunk := fun chained => inv.chunk chained (by rw [sending]; nofun)
  cases ends with
  | protocolError large =>
    exact ⟨inv.held, inv.room, fun chained _ => chunk chained, nofun, nofun, nofun⟩
  | left rev small stops =>
    exact ⟨held, inv.room, fun chained _ => chunk chained, nofun, nofun, nofun⟩
  | failed small goes error =>
    refine ⟨held, inv.room, fun chained _ => chunk chained, ?_, ?_, ?_⟩ <;>
    · intro wrong
      simp only [restoreFwt, afterCommError] at wrong
      split at wrong
      · cases wrong
      · split at wrong <;> cases wrong
  | unknown small goes error code =>
    have same : (restoreFwt { sent (answers s.transceptions) s with iErrRetry := 0 }).step =
        .orgTraRcv := sending
    refine ⟨held, inv.room, fun chained _ => chunk chained, ?_, ?_, ?_⟩ <;>
    · intro wrong
      exact nomatch same.symm.trans wrong
  | block small goes good sorted =>
    have below := (not_or.mp goes).2
    cases sorted with
    | invalid => exact ⟨held, inv.room, fun chained _ => chunk chained, nofun, nofun, nofun⟩
    | rBlock pcb plain =>
      exact ⟨held, inv.room, fun chained _ => chunk chained, nofun, nofun, nofun⟩
    | iBlock pcb num =>
      refine ⟨held, inv.room, fun chained _ => chunk chained, nofun, ?_, nofun⟩
      intro _ late
      have notLingering := rare s.transceptions (Nat.lt_succ_iff.mp late)
      rw [← held] at notLingering
      have unchained : ¬ ((sent (answers s.transceptions) s).rxBuf 0 = 0x12 ∨
          (sent (answers s.transceptions) s).rxBuf 0 = 0x13) :=
        fun chained => notLingering (.inr (.inl ⟨good, chained⟩))
      change (sent (answers s.transceptions) s).rxBuf 0 &&& CHAINED = 0
      rcases pcb with pcb | pcb | pcb | pcb <;> dsimp only at pcb
      · rw [pcb]; decide
      · rw [pcb]; decide
      · exact absurd (.inl pcb) unchained
      · exact absurd (.inr pcb) unchained
    | sBlock pcb plain =>
      refine ⟨held, inv.room, fun chained _ => chunk chained, ?_, nofun, ?_⟩
      · intro _ limited
        exact not_le.mp fun reached => below ⟨limited, reached⟩
      · intro _ late request
        have notLingering := rare s.transceptions (Nat.lt_succ_iff.mp late)
        rw [← held] at notLingering
        by_contra unlimited
        exact notLingering (.inr (.inr ⟨good, wtx_plain plain request, unlimited⟩))

/-! ## The measure goes down -/

theorem effort_sending {s : Exchange} (sending : s.step = .orgTraRcv) :
    effort s = 160 * (s.iTxNum + s.iTxCn) + 40 * (3 - s.iIRetry) + 20 + 4 * (4 - s.iErrRetry) := by
  simp [effort, unsent, sending, ExcStep.sending, ExcStep.rank]

theorem effort_received {s : Exchange} (received : s.step.received = 1) :
    effort s = 160 * (s.iTxNum + s.iTxCn) + 40 * (3 - s.iIRetry) + 4 * (4 - s.iErrRetry) + 2 := by
  unfold effort unsent
  cases step : s.step <;> simp [step, ExcStep.received] at received <;>
    simp [ExcStep.sending, ExcStep.rank]

theorem less_of_effort {last : Nat} {s after : Exchange}
    (lower : lingering last after ≤ lingering last s)
    (same : after.swtLimitCount = s.swtLimitCount) (effortLower : effort after < effort s) :
    Less (remaining para last after) (remaining para last s) := by
  refine less_iff.mpr ?_
  rcases Nat.lt_or_eq_of_le lower with less | equal
  · exact .inl less
  · exact .inr ⟨equal, .inr ⟨by rw [same], effortLower⟩⟩

theorem lingering_transmitted {last : Nat} {s after : Exchange} (sending : s.step = .orgTraRcv)
    (counted : after.transceptions = s.transceptions + 1) :
    lingering last after ≤ lingering last s := by
  have few : after.step.received ≤ 1 := by
    cases after.step <;> simp [ExcStep.received]
  have none : ExcStep.orgTraRcv.received = 0 := rfl
  rw [lingering, lingering, sending, counted, none]
  split_ifs <;> omega

/-- The stage that transmits lowers the measure. -/
theorem traRcv_less {first : Byte} {last : Nat} {s after : Exchange}
    (sending : s.step = .orgTraRcv)
    (rare : ∀ n, last ≤ n → ¬ Lingering para (heldByte first answers (n + 1)) (answers n))
    (ends : TraRcv para (answers s.transceptions) s after) :
    Less (remaining para last after) (remaining para last s) := by
  have before := effort_sending sending
  cases ends with
  | protocolError large =>
    refine less_of_effort ?_ rfl ?_
    · simp [lingering, sending, ExcStep.received]
    · rw [before]
      simp only [effort, unsent, ExcStep.sending, ExcStep.rank, reduceCtorEq, if_false]
      omega
  | left rev small stops =>
    refine less_of_effort (lingering_transmitted sending rfl) rfl ?_
    rw [before]
    simp only [effort, unsent, sent, pcdTransCeive, ExcStep.sending, ExcStep.rank, reduceCtorEq,
      if_false]
    omega
  | failed small goes error =>
    refine less_of_effort (lingering_transmitted sending rfl) rfl ?_
    rw [before]
    simp only [effort, unsent, restoreFwt, afterCommError, sent, pcdTransCeive,
      RETRANSMISSION_LIMITED]
    split
    · simp only [ExcStep.sending, ExcStep.rank, reduceCtorEq, if_false]
      omega
    · split <;> simp only [ExcStep.sending, ExcStep.rank, reduceCtorEq, if_false] <;> omega
  | unknown small goes error code =>
    have early : s.transceptions < last := by
      by_contra late
      exact rare s.transceptions (not_lt.mp late) (.inl ⟨error, code⟩)
    have same : (restoreFwt { sent (answers s.transceptions) s with iErrRetry := 0 }).step =
        .orgTraRcv := sending
    refine less_iff.mpr (.inl ?_)
    simp only [lingering, same, sending, ExcStep.received]
    simp only [restoreFwt, sent, pcdTransCeive]
    rw [if_pos (by omega), if_pos (by omega)]
    omega
  | block small goes good sorted =>
    cases sorted with
    | invalid =>
      refine less_of_effort (lingering_transmitted sending rfl) rfl ?_
      rw [before]
      simp only [effort, unsent, restoreFwt, sent, pcdTransCeive, ExcStep.sending, ExcStep.rank,
        reduceCtorEq, if_false]
      omega
    | iBlock pcb num =>
      refine less_of_effort (lingering_transmitted sending rfl) rfl ?_
      rw [before, effort_received rfl]
      simp only [restoreFwt, sent, pcdTransCeive]
      omega
    | rBlock pcb plain =>
      refine less_of_effort (lingering_transmitted sending rfl) rfl ?_
      rw [before, effort_received rfl]
      simp only [restoreFwt, sent, pcdTransCeive]
      omega
    | sBlock pcb plain =>
      refine less_of_effort (lingering_transmitted sending rfl) rfl ?_
      rw [before, effort_received rfl]
      simp only [restoreFwt, sent, pcdTransCeive]
      omega

/-- A stage after a block was received brings the last lingering answer closer, or
comes after it. -/
theorem lingering_worked {last : Nat} {s after : Exchange} (received : s.step.received = 1)
    (idle : after.step.received = 0) (same : after.transceptions = s.transceptions) :
    lingering last after < lingering last s ∨
      last < s.transceptions ∧ lingering last after = lingering last s := by
  rw [lingering, lingering, received, idle, same]
  split_ifs <;> omega

theorem lingering_le {last : Nat} {s after : Exchange} (received : s.step.received = 1)
    (idle : after.step.received = 0) (same : after.transceptions = s.transceptions) :
    lingering last after ≤ lingering last s := by
  rcases lingering_worked received idle same with lower | ⟨-, equal⟩
  · exact lower.le
  · exact equal.le

theorem Ending.refused {first : Byte} {last : Nat} {s : Exchange}
    (inv : Ending para first answers last s) (received : s.step.received = 1) :
    Ending para first answers last { s with step := .rcvInvBlock } ∧
      Less (remaining para last { s with step := .rcvInvBlock }) (remaining para last s) := by
  have notOrg : s.step ≠ .orgIBlock := by
    intro org
    rw [org] at received
    cases received
  refine ⟨⟨inv.held, inv.room, fun chained _ => inv.chunk chained notOrg, nofun, nofun, nofun⟩, ?_⟩
  refine less_of_effort (lingering_le received (by rfl) (by rfl)) rfl ?_
  rw [effort_received received]
  simp only [effort, unsent, ExcStep.sending, ExcStep.rank, reduceCtorEq, if_false]
  omega

theorem Ending.iBlock {first : Byte} {last : Nat} {s : Exchange}
    (inv : Ending para first answers last s) (stage : s.step = .rcvIBlock)
    (goes : (rcvIBlock s).step ≠ .nonEvent) :
    Ending para first answers last (rcvIBlock s) ∧
      Less (remaining para last (rcvIBlock s)) (remaining para last s) := by
  have received : s.step.received = 1 := by rw [stage]; rfl
  unfold rcvIBlock at goes ⊢
  split
  · exact inv.refused received
  · next done =>
    rw [if_neg done] at goes
    split
    · next number =>
      rw [if_pos number] at goes
      dsimp only at goes
      split at goes
      · next chained =>
        rw [if_pos chained]
        have early : ¬ last < s.transceptions := fun late => chained (inv.chain stage late)
        refine ⟨⟨inv.held, inv.room, ?_, nofun, nofun, nofun⟩, ?_⟩
        · intro sentChained _
          rw [toggle_chained] at sentChained
          exact inv.chunk sentChained (by rw [stage]; nofun)
        · refine less_iff.mpr (.inl ?_)
          exact (lingering_worked received (by rfl) (by rfl)).resolve_right
            fun later => early later.1
      · exact absurd rfl goes
    · exact inv.refused received

theorem Ending.rBlock {first : Byte} {last : Nat} {s : Exchange}
    (inv : Ending para first answers last s) (stage : s.step = .rcvRBlock) :
    Ending para first answers last (rcvRBlock s) ∧
      Less (remaining para last (rcvRBlock s)) (remaining para last s) := by
  have received : s.step.received = 1 := by rw [stage]; rfl
  have before := effort_received received
  unfold rcvRBlock
  split
  · exact inv.refused received
  · split
    · split
      · next chained =>
        -- an acknowledged chunk is not empty
        have some := inv.chunk chained (by rw [stage]; nofun)
        refine ⟨⟨inv.held, inv.room, fun _ other => absurd rfl other, nofun, nofun, nofun⟩, ?_⟩
        refine less_of_effort (lingering_le received (by rfl) (by rfl)) rfl ?_
        rw [before]
        simp only [effort, unsent, ExcStep.sending, ExcStep.rank, if_true]
        omega
      · exact inv.refused received
    · dsimp only
      split
      · next many =>
        refine ⟨⟨inv.held, inv.room, fun chained _ => inv.chunk chained (by rw [stage]; nofun),
          nofun, nofun, nofun⟩, ?_⟩
        refine less_of_effort (lingering_le received (by rfl) (by rfl)) rfl ?_
        rw [before]
        simp only [effort, unsent, ExcStep.sending, ExcStep.rank, reduceCtorEq, if_false]
        omega
      · next few =>
        unfold RETRANSMISSION_LIMITED at few
        refine ⟨⟨inv.held, inv.room, fun _ other => absurd rfl other, nofun, nofun, nofun⟩, ?_⟩
        refine less_of_effort (lingering_le received (by rfl) (by rfl)) rfl ?_
        rw [before]
        simp only [effort, unsent, ExcStep.sending, ExcStep.rank, if_true]
        omega

theorem Ending.sBlock {first : Byte} {last : Nat} {s : Exchange}
    (inv : Ending para first answers last s) (stage : s.step = .rcvSBlock) :
    Ending para first answers last (rcvSBlock s) ∧
      Less (remaining para last (rcvSBlock s)) (remaining para last s) := by
  have received : s.step.received = 1 := by rw [stage]; rfl
  unfold rcvSBlock
  split
  · exact inv.refused received
  · next request =>
    split
    · exact inv.refused received
    · refine ⟨⟨inv.held, inv.room, fun chained _ => inv.chunk chained (by rw [stage]; nofun),
        nofun, nofun, nofun⟩, ?_⟩
      have worked : lingering last (extendWait s) < lingering last s ∨
          last < s.transceptions ∧ lingering last (extendWait s) = lingering last s :=
        lingering_worked received rfl rfl
      rcases worked with lower | ⟨late, same⟩
      · exact less_iff.mpr (.inl lower)
      · have below := inv.limit stage (inv.wait stage late (not_not.mp request))
        refine less_iff.mpr (.inr ⟨same, .inl ?_⟩)
        simp only [extendWait]
        omega

theorem Ending.prepared {first : Byte} {last : Nat} {s : Exchange} (txBuf : List Byte)
    (inv : Ending para first answers last s)
    (stage : s.step = .orgAckBlock ∨ s.step = .orgNackBlock ∨ s.step = .orgSBlock) :
    Ending para first answers last { s with txBuf := txBuf, step := .orgTraRcv } ∧
      Less (remaining para last { s with txBuf := txBuf, step := .orgTraRcv })
        (remaining para last s) := by
  refine ⟨⟨inv.held, inv.room, fun chained _ => inv.chunk chained ?_, nofun, nofun, nofun⟩, ?_⟩
  · rcases stage with stage | stage | stage <;> rw [stage] <;> nofun
  · refine less_of_effort ?_ rfl ?_
    · rcases stage with stage | stage | stage <;> simp [lingering, stage, ExcStep.received]
    · rcases stage with stage | stage | stage <;>
        simp [effort, unsent, stage, ExcStep.sending, ExcStep.rank]

theorem Ending.round {first : Byte} {last : Nat} {s : Exchange}
    (inv : Ending para first answers last s)
    (rare : ∀ n, last ≤ n → ¬ Lingering para (heldByte first answers (n + 1)) (answers n))
    (goes : (exchangeBody para command (answers s.transceptions) s).step ≠ .nonEvent) :
    Ending para first answers last (exchangeBody para command (answers s.transceptions) s) ∧
      Less (remaining para last (exchangeBody para command (answers s.transceptions) s))
        (remaining para last s) := by
  unfold exchangeBody at goes ⊢
  split at goes <;> rename_i stage
  · -- an I-block is built
    refine ⟨⟨inv.held, inv.room, ?_, nofun, nofun, nofun⟩, ?_⟩
    · intro chained _
      have long := (iBlockPcb_chained s.pcd _).mp chained
      simp only [orgIBlock]
      rw [if_pos (of_decide_eq_true long)]
      exact iTxLmt_pos inv.room
    · refine less_of_effort ?_ rfl ?_
      · simp [lingering, orgIBlock, stage, ExcStep.received]
      · simp only [effort, unsent, stage, orgIBlock, ExcStep.sending, ExcStep.rank, reduceCtorEq,
          if_true, if_false]
        split_ifs <;> omega
  · exact inv.prepared _ (.inl stage)
  · exact inv.prepared _ (.inr (.inl stage))
  · exact inv.prepared _ (.inr (.inr stage))
  · exact ⟨inv.traRcv stage rare (orgTraRcv_spec _ _ _),
      traRcv_less stage rare (orgTraRcv_spec _ _ _)⟩
  · exact inv.iBlock stage goes
  · exact inv.rBlock stage
  · exact inv.sBlock stage
  · exact absurd rfl goes
  · exact absurd stage goes

/-- **The exchange comes to an end** for every card and reader of which it gets finitely
many answers that are return codes it does not look at, chained I-blocks, or waiting time
requests without a limit. -/
theorem exchange_returns (para : PiccPara) (pcd : PcdInfo) (command : List Byte)
    (rxBuf : Nat → Byte) (answers : Nat → Answer)
    (rare : ∃ last, ∀ n, last ≤ n →
      ¬ Lingering para (heldByte (rxBuf 0) answers (n + 1)) (answers n)) :
    Outcome.Returns (exchangeStep para command answers)
      (.running (startExchange pcd command rxBuf)) := by
  obtain ⟨last, rare⟩ := rare
  -- a round that goes on is a body that does not end
  have goesOn : ∀ state after, exchangeStep para command answers state = .running after →
      after = exchangeBody para command (answers state.transceptions) state ∧
        after.step ≠ .nonEvent := by
    intro state after ended
    unfold exchangeStep at ended
    dsimp only at ended
    split at ended
    · cases ended
    · next goes =>
      cases ended
      exact ⟨rfl, goes⟩
  have start : Ending para (rxBuf 0) answers last (startExchange pcd command rxBuf) :=
    Ending.start rxBuf last
  refine Outcome.returns_of_wellFounded less_wf (remaining para last) ?_ ?_ start
  · intro state after inv ended
    obtain ⟨rfl, goes⟩ := goesOn state after ended
    exact (inv.round rare goes).1
  · intro state after inv ended
    obtain ⟨rfl, goes⟩ := goesOn state after ended
    exact (inv.round rare goes).2

/-- A card that is not there. -/
def silentCard : Nat → Answer := fun _ =>
  { rev := COMM_TIMEOUT, num := 0, data := fun _ => 0, cancelKey := false }

/-- The exchange with a card that is not there returns. -/
theorem exchange_returns_silent :
    Outcome.Returns (exchangeStep plainPara [0x00] silentCard)
      (.running (startExchange freshPcd [0x00] fun _ => 0)) := by
  refine exchange_returns plainPara freshPcd [0x00] (fun _ => 0) silentCard ⟨0, ?_⟩
  rintro n - (⟨unknown, -⟩ | ⟨good, -⟩ | ⟨good, -⟩)
  · exact unknown rfl
  · exact absurd good (show COMM_TIMEOUT ≠ 0 by decide)
  · exact absurd good (show COMM_TIMEOUT ≠ 0 by decide)

/-! ## Exchanges that never return -/

/-- A card that asks for more time with every block. -/
def waitingCard : Nat → Answer := fun _ =>
  { rev := 0, num := 2, data := fun i => if i = 0 then 0xF2 else 0x01, cancelKey := false }

/-- A reader chip that reports a framing error with every block. -/
def brokenReader : Nat → Answer := fun _ =>
  { rev := COMM_FRAME, num := 0, data := fun _ => 0, cancelKey := false }

/-- A stage that a card asking for more time leads through. -/
def Waiting (s : Exchange) : Prop :=
  s.uiWtx = 1 ∧ (s.step = .orgIBlock ∨ s.step = .orgTraRcv ∨ s.step = .orgSBlock ∨
    s.step = .rcvSBlock ∧ s.rxBuf 0 = 0xF2 ∧ s.rxBuf 1 = 0x01)

theorem Waiting.round {command : List Byte} {s : Exchange} (waiting : Waiting s) :
    ∃ after, exchangeStep plainPara command waitingCard s = .running after ∧ Waiting after := by
  obtain ⟨one, stage | stage | stage | ⟨stage, request, time⟩⟩ := waiting
  · exact ⟨orgIBlock command s, by simp [exchangeStep, exchangeBody, stage, orgIBlock],
      one, .inr (.inl rfl)⟩
  · have after : orgTraRcv plainPara (waitingCard s.transceptions) s =
        restoreFwt { sent (waitingCard s.transceptions) s with
          iErrRetry := 0, iSRetry := s.iSRetry + 1, step := .rcvSBlock } := by
      simp [orgTraRcv, sent, one, plainPara, waitingCard, PiccPara.limited, afterTransCeive,
        pcdTransCeive, commError, COMM_PARITY, COMM_CODE, COMM_TIMEOUT, COMM_CRC, sortBlock,
        isIBlock, isRBlock, isSBlock, hasAddress, CID, NAD]
    refine ⟨_, by simp only [exchangeStep, exchangeBody, stage, after]; rfl, rfl,
      .inr (.inr (.inr ⟨rfl, rfl, rfl⟩))⟩
  · exact ⟨orgSBlock s, by simp [exchangeStep, exchangeBody, stage, orgSBlock],
      one, .inr (.inl rfl)⟩
  · have asked : requestedWtx s = 1 := by
      simp [requestedWtx, request, time, CID]
    refine ⟨extendWait s, ?_, ?_, .inr (.inr (.inl rfl))⟩
    · simp [exchangeStep, exchangeBody, stage, rcvSBlock, request, asked, extendWait]
    · simp [extendWait, asked]

/-- A stage that a broken reader leads through. -/
def Broken (s : Exchange) : Prop :=
  s.uiWtx = 1 ∧ (s.step = .orgIBlock ∨ s.step = .orgTraRcv)

theorem Broken.round {command : List Byte} {s : Exchange} (broken : Broken s) :
    ∃ after, exchangeStep plainPara command brokenReader s = .running after ∧ Broken after := by
  obtain ⟨one, stage | stage⟩ := broken
  · exact ⟨orgIBlock command s, by simp [exchangeStep, exchangeBody, stage, orgIBlock],
      one, .inr rfl⟩
  · have after : orgTraRcv plainPara (brokenReader s.transceptions) s =
        restoreFwt { sent (brokenReader s.transceptions) s with iErrRetry := 0 } := by
      simp [orgTraRcv, sent, one, plainPara, brokenReader, PiccPara.limited, afterTransCeive,
        pcdTransCeive, commError, COMM_FRAME, COMM_PARITY, COMM_CODE, COMM_TIMEOUT, COMM_CRC]
    have stays : (restoreFwt { sent (brokenReader s.transceptions) s with iErrRetry := 0 }).step =
        .orgTraRcv := stage
    refine ⟨_, ?_, rfl, .inr stays⟩
    simp only [exchangeStep, exchangeBody, stage, after, stays]
    rfl

theorem not_returns {para : PiccPara} {command : List Byte} {answers : Nat → Answer}
    {start : Exchange} (stuck : Exchange → Prop) (first : stuck start)
    (round : ∀ s, stuck s →
      ∃ after, exchangeStep para command answers s = .running after ∧ stuck after) :
    ¬ Outcome.Returns (exchangeStep para command answers) (.running start) := by
  have always : ∀ rounds, ∃ s,
      Outcome.run (exchangeStep para command answers) (.running start) rounds = .running s ∧
        stuck s := by
    intro rounds
    induction rounds with
    | zero => exact ⟨start, rfl, first⟩
    | succ rounds past =>
      obtain ⟨s, reached, holds⟩ := past
      obtain ⟨after, goes, stays⟩ := round s holds
      exact ⟨after, by rw [Outcome.run_succ, reached, Outcome.next_running, goes], stays⟩
  rintro ⟨rounds, code, state, returned⟩
  obtain ⟨s, running, -⟩ := always rounds
  rw [running] at returned
  cases returned

/-- **Exchanges that never return**: with a card that asks for more time with every block,
and with a reader chip that reports a framing error with every block. -/
theorem exchange_waits :
    ¬ Outcome.Returns (exchangeStep plainPara [0x00] waitingCard)
      (.running (startExchange freshPcd [0x00] fun _ => 0)) ∧
    ¬ Outcome.Returns (exchangeStep plainPara [0x00] brokenReader)
      (.running (startExchange freshPcd [0x00] fun _ => 0)) :=
  ⟨not_returns Waiting ⟨rfl, .inl rfl⟩ fun _ => Waiting.round,
    not_returns Broken ⟨rfl, .inl rfl⟩ fun _ => Broken.round⟩

end PosFirmware.Contactless
