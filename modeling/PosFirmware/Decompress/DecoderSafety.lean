import PosFirmware.Decompress.DecoderInterval

/-! # Safety of the decompressor

Whatever the compressed bytes are, `Decompress` writes at most `*dstlen` bytes, stays
inside its tables, and keeps the tables of its symbols well formed
(`decompress_safe`). What carries this besides the tables is that the value stays
inside the interval of the arithmetic code.
-/

namespace PosFirmware.Decompress

open PosFirmware.Foundation

variable {source : Source} {d : Decoder}

/-! ## A round -/

/-- What holds of the variables at the top of the loop and after each byte written. -/
structure Decoder.Kept (source : Source) (d : Decoder) : Prop where
  wellFormed : d.tables.WellFormed
  positioned : d.tables.Positioned
  holds : d.coder.Holds
  place : d.r < 4096
  written : d.out.length ≤ d.dstlen
  length : d.dstlen = source.dstlen

/-- What a byte written, a repetition or a round leaves: it returns the error of a full
destination, or it goes on with a number of bytes more. -/
def Advances (source : Source) (d : Decoder) (least : Nat) : Outcome Decoder → Prop
  | .running d' => d'.Kept source ∧ d.out.length + least ≤ d'.out.length
  | .returned code d' => d'.Kept source ∧ code = -1

theorem Advances.weaken {before : Decoder} {least more : Nat} {outcome : Outcome Decoder}
    (advances : Advances source d more outcome) (out : before.out = d.out) (fewer : least ≤ more) :
    Advances source before least outcome := by
  cases outcome with
  | returned code d' => exact advances
  | running d' =>
    obtain ⟨kept, longer⟩ := advances
    refine ⟨kept, ?_⟩
    rw [out]
    omega

theorem Decoder.Kept.put (kept : d.Kept source) (byte : BitVec 8) :
    ∃ outcome, d.put byte = some outcome ∧ Advances source d 1 outcome := by
  unfold Decoder.put
  split
  · exact ⟨_, rfl, kept, rfl⟩
  · next room =>
    have inside : d.r < DATA_SIZE := lt_trans kept.place (by decide)
    refine ⟨.running { d with
        out := d.out ++ [byte]
        dataBuf := Function.update d.dataBuf d.r byte
        r := (d.r + 1) &&& 4095 }, ?_,
      ⟨kept.wellFormed, kept.positioned, kept.holds, ?_, ?_, kept.length⟩, by simp⟩
    · rw [writeAt_inside inside]
      rfl
    · exact Nat.lt_succ_of_le Nat.and_le_right
    · dsimp only
      rw [List.length_append, List.length_singleton]
      omega

theorem Decoder.Kept.copyLoop (kept : d.Kept source) (i left k : Nat) :
    ∃ outcome, copyLoop i left k d = some outcome ∧ Advances source d left outcome := by
  induction left generalizing d k with
  | zero => exact ⟨_, rfl, kept, le_rfl⟩
  | succ left past =>
    have inside : (i + k) &&& 4095 < DATA_SIZE :=
      lt_of_le_of_lt Nat.and_le_right (by decide)
    obtain ⟨outcome, written, advances⟩ := kept.put (d.dataBuf ((i + k) &&& 4095))
    simp only [Decompress.copyLoop, readAt_inside inside, written, Option.bind_eq_bind,
      Option.bind_some]
    cases outcome with
    | returned code d' => exact ⟨_, rfl, advances⟩
    | running d' =>
      obtain ⟨outcome', copied, advances'⟩ := past advances.1 (k + 1)
      refine ⟨outcome', copied, ?_⟩
      have longer := advances.2
      cases outcome' with
      | returned code d'' => exact advances'
      | running d'' => exact ⟨advances'.1, by have := advances'.2; omega⟩

/-- **A round** decodes a symbol that the tables have, counts it, and writes at least a
byte or returns. -/
theorem decodeRound_advances (kept : d.Kept source) :
    ∃ outcome, decodeRound source d = some outcome ∧ Advances source d 1 outcome := by
  have small : SYMBOLS < SYM_SIZE := by decide
  obtain ⟨sym, coder, decoded, ⟨first, last⟩, exact_⟩ :=
    (@decodeSym_exact source) kept.wellFormed kept.holds
  have holds := exact_.holds
  obtain ⟨tables, updated, wellFormed, posCum⟩ := updateNode_wellFormed kept.wellFormed first last
  have positioned : tables.Positioned := ⟨posCum ▸ kept.positioned.cumulative,
    posCum ▸ kept.positioned.total⟩
  have kept' : Decoder.Kept source { d with tables := tables, coder := coder } :=
    ⟨wellFormed, positioned, holds, kept.place, kept.written, kept.length⟩
  rw [decodeRound, decoded, Option.bind_eq_bind, Option.bind_some, Option.bind_eq_bind,
    readAt_inside (by omega), Option.bind_some, updated, Option.bind_eq_bind, Option.bind_some]
  dsimp only
  split
  · exact kept'.put _
  · obtain ⟨i, coder', found, -, exact'⟩ := (@decodePos_exact source) positioned holds
    have holds' := exact'.holds
    have kept'' : Decoder.Kept source { d with tables := tables, coder := coder' } :=
      ⟨wellFormed, positioned, holds', kept.place, kept.written, kept.length⟩
    obtain ⟨outcome, copied, advances⟩ := kept''.copyLoop (wsub (wsub d.r i) 1 &&& 4095)
      (d.tables.symChar sym - 255 + 2) 0
    refine ⟨outcome, ?_, advances.weaken rfl (by omega)⟩
    rw [repetition, found, Option.bind_eq_bind, Option.bind_some]
    exact copied

/-! ## Before the loop -/

/-- What setting up the tables of the symbols leaves: every symbol stands for the
character in front of it and counts once. -/
theorem initSyms_eq {t : Tables} {n : Nat} (inside : n < SYM_SIZE) :
    ∃ t', initSyms n t = some t' ∧ t'.posCum = t.posCum ∧
      (∀ i, t'.charSym i = if i < n then i + 1 else t.charSym i) ∧
      (∀ i, t'.symChar i = if 1 ≤ i ∧ i ≤ n then i - 1 else t.symChar i) ∧
      (∀ i, t'.symFreq i = if 1 ≤ i ∧ i ≤ n then 1 else t.symFreq i) ∧
      ∀ i, t'.symCum i = if i < n then t.symCum n + (n - i) else t.symCum i := by
  induction n generalizing t with
  | zero =>
    exact ⟨t, rfl, rfl, fun i => (if_neg (by omega)).symm, fun i => (if_neg (by omega)).symm,
      fun i => (if_neg (by omega)).symm, fun i => (if_neg (by omega)).symm⟩
  | succ n past =>
    have inside' : n < SYM_SIZE := by omega
    obtain ⟨t', loop, posCum, charSym, symChar, symFreq, symCum⟩ := (@past
      { t with
        charSym := Function.update t.charSym n (n + 1)
        symChar := Function.update t.symChar (n + 1) n
        symFreq := Function.update t.symFreq (n + 1) 1
        symCum := Function.update t.symCum n (t.symCum (n + 1) + 1) }) inside'
    dsimp only at charSym symChar symFreq symCum
    refine ⟨t', ?_, posCum, fun i => ?_, fun i => ?_, fun i => ?_, fun i => ?_⟩
    · simp only [initSyms, writeAt_inside inside, writeAt_inside inside', readAt_inside inside,
        Function.update_self, Option.bind_eq_bind, Option.bind_some]
      exact loop
    · rw [charSym i]
      by_cases here : i = n
      · simp [here]
      · rw [Function.update_of_ne here]
        exact if_congr (by omega) rfl rfl
    · rw [symChar i]
      by_cases here : i = n + 1
      · simp [here]
      · rw [Function.update_of_ne here]
        exact if_congr (by omega) rfl rfl
    · rw [symFreq i]
      by_cases here : i = n + 1
      · simp [here]
      · rw [Function.update_of_ne here]
        exact if_congr (by omega) rfl rfl
    · rw [symCum i]
      by_cases here : i = n
      · simp [here]
      · rw [Function.update_of_ne here, Function.update_self]
        split_ifs <;> omega

theorem initSyms_wellFormed {t : Tables} (last : t.symCum SYMBOLS = 0) :
    ∃ t', initSyms SYMBOLS t = some t' ∧
      ({ t' with symFreq := Function.update t'.symFreq 0 0 } : Tables).WellFormed := by
  obtain ⟨t', loop, -, charSym, symChar, symFreq, symCum⟩ := (@initSyms_eq t SYMBOLS) (by decide)
  have symbols : SYMBOLS = 314 := rfl
  have one : ∀ i, 1 ≤ i → i ≤ SYMBOLS → Function.update t'.symFreq 0 0 i = 1 := by
    intro i first order
    rw [Function.update_of_ne (by omega), symFreq, if_pos ⟨first, order⟩]
  have cum : ∀ i ≤ SYMBOLS, t'.symCum i = SYMBOLS - i := by
    intro i order
    rw [symCum, last, Nat.zero_add]
    split
    · rfl
    · next notBelow =>
      obtain rfl : i = SYMBOLS := by omega
      omega
  refine ⟨t', loop, ⟨?_, fun i inside => ?_⟩, fun i inside => ?_, fun i first inside => ?_,
    ?_, ⟨fun c inside => ?_, fun s first order => ?_⟩, ?_⟩
  · exact (cum SYMBOLS le_rfl).trans (Nat.sub_self _)
  · dsimp only
    rw [one (i + 1) (by omega) inside, cum i inside.le, cum (i + 1) inside]
    omega
  · dsimp only
    rw [cum i inside.le, cum (i + 1) inside]
    omega
  · dsimp only
    rw [one (i + 1) (by omega) inside, one i first (by omega)]
  · exact Function.update_self 0 0 t'.symFreq
  · dsimp only
    rw [charSym, if_pos inside, symChar, if_pos (by omega)]
    exact ⟨by omega, by omega⟩
  · dsimp only
    rw [symChar, if_pos ⟨first, order⟩, charSym, if_pos (by omega)]
    exact ⟨by omega, by omega⟩
  · dsimp only
    rw [cum 0 (Nat.zero_le _)]
    omega

theorem initPositions_eq {posCum : Nat → Nat} {n : Nat} (inside : n < POS_SIZE) :
    ∃ posCum', initPositions n posCum = some posCum' ∧ (∀ i, n ≤ i → posCum' i = posCum i) ∧
      ∀ i < n, posCum' i = posCum' (i + 1) + posFreq (i + 1) := by
  induction n generalizing posCum with
  | zero => exact ⟨posCum, rfl, fun _ _ => rfl, by omega⟩
  | succ n past =>
    have inside' : n < POS_SIZE := by omega
    obtain ⟨posCum', loop, above, step⟩ := (@past
      (Function.update posCum n (posCum (n + 1) + posFreq (n + 1)))) inside'
    refine ⟨posCum', ?_, fun i order => ?_, fun i order => ?_⟩
    · simp only [initPositions, writeAt_inside inside', readAt_inside inside, Option.bind_eq_bind,
        Option.bind_some]
      exact loop
    · rw [above i (by omega), Function.update_of_ne (by omega)]
    · by_cases here : i = n
      · subst here
        rw [above i le_rfl, above (i + 1) (by omega), Function.update_self,
          Function.update_of_ne (by omega)]
      · exact step i (by omega)

/-- The shares of the first positions added to a number. -/
def addPosFreq : Nat → Nat → Nat
  | 0, sum => sum
  | n + 1, sum => addPosFreq n (sum + posFreq (n + 1))

theorem addPosFreq_eq (n sum : Nat) :
    addPosFreq n sum = sum + ∑ i ∈ Finset.Ioc 0 n, posFreq i := by
  induction n generalizing sum with
  | zero => simp [addPosFreq]
  | succ n past =>
    rw [addPosFreq, past, Finset.sum_Ioc_succ_top (Nat.zero_le n)]
    omega

theorem sum_posFreq : ∑ i ∈ Finset.Ioc 0 POSITIONS, posFreq i = 28568 := by
  have sum := addPosFreq_eq POSITIONS 0
  have value : addPosFreq POSITIONS 0 = 28568 := by
    rw [POSITIONS]
    decide +kernel
  rw [value, Nat.zero_add] at sum
  exact sum.symm

theorem initTables_spec (statics : Tables) :
    ∃ t, initTables statics = some t ∧ t.WellFormed ∧ t.Positioned := by
  obtain ⟨t, syms, wellFormed⟩ := @initSyms_wellFormed
    { statics with symCum := Function.update statics.symCum SYMBOLS 0 }
    (Function.update_self SYMBOLS 0 statics.symCum)
  obtain ⟨posCum, positions, above, step⟩ :=
    (@initPositions_eq (Function.update t.posCum POSITIONS 0) POSITIONS) (by decide)
  have cumulative : Cumulative POSITIONS posFreq posCum :=
    ⟨by rw [above _ le_rfl, Function.update_self], step⟩
  have total : posCum 0 = 28568 := (cumulative.sum (Nat.zero_le _)).trans sum_posFreq
  refine ⟨{ t with symFreq := Function.update t.symFreq 0 0, posCum := posCum }, ?_,
    ⟨wellFormed.cumulative, wellFormed.decreasing, wellFormed.ordered, wellFormed.sentinel,
      wellFormed.inverse, wellFormed.total⟩, cumulative, ?_⟩
  · simp only [initTables, writeAt_inside (show SYMBOLS < SYM_SIZE by decide),
      writeAt_inside (show 0 < SYM_SIZE by decide),
      writeAt_inside (show POSITIONS < POS_SIZE by decide), syms, positions,
      Option.bind_eq_bind, Option.bind_some]
    rfl
  · dsimp only
    omega

theorem fillLoop_some (left i : Nat) (dataBuf : Nat → BitVec 8) (inside : i + left ≤ DATA_SIZE) :
    ∃ dataBuf', fillLoop left i dataBuf = some dataBuf' := by
  induction left generalizing i dataBuf with
  | zero => exact ⟨dataBuf, rfl⟩
  | succ left past =>
    simp only [fillLoop, writeAt_inside (show i < DATA_SIZE by omega), Option.bind_eq_bind,
      Option.bind_some]
    exact past (i + 1) _ (by omega)

theorem initDecoder_kept (source : Source) (statics : Tables) (stack : Nat → BitVec 8) :
    ∃ d, initDecoder source statics stack = some d ∧ d.Kept source := by
  obtain ⟨t, tables, wellFormed, positioned⟩ := initTables_spec statics
  obtain ⟨dataBuf, filled⟩ := fillLoop_some (4096 - 60) 0 stack (by decide)
  refine ⟨⟨t, initCoder source, dataBuf, 4096 - 60, [], source.dstlen⟩, ?_, wellFormed, positioned,
    initCoder_holds source, show 4096 - 60 < 4096 by decide, Nat.zero_le _, rfl⟩
  simp only [initDecoder, tables, filled, Option.bind_eq_bind, Option.bind_some]
  rfl

/-! ## Whole runs -/

/-- What holds after every symbol. -/
structure RunKept (source : Source) (outcome : Outcome Decoder) : Prop where
  kept : outcome.state.Kept source
  room : ∀ d, outcome = .running d → d.out.length < d.dstlen
  code : ∀ code d, outcome = .returned code d → code = 0 ∨ code = -1

theorem RunKept.running (kept : d.Kept source) (room : d.out.length < d.dstlen) :
    RunKept source (.running d) :=
  ⟨kept, fun _ same => Outcome.running.inj same ▸ room, by simp⟩

theorem RunKept.returned {code : Int} (kept : d.Kept source) (known : code = 0 ∨ code = -1) :
    RunKept source (.returned code d) := by
  refine ⟨kept, by simp, fun code' d' same => ?_⟩
  obtain ⟨rfl, -⟩ := Outcome.returned.inj same
  exact known

theorem decodeWhile_kept {outcome : Outcome Decoder} (advances : Advances source d 1 outcome) :
    RunKept source (decodeWhile outcome) := by
  cases outcome with
  | returned code d' => exact .returned advances.1 (.inr advances.2)
  | running d' =>
    rw [decodeWhile]
    split
    · next room => exact .running advances.1 room
    · exact .returned advances.1 (.inl rfl)

theorem decompressStart_kept (source : Source) (statics : Tables) (stack : Nat → BitVec 8) :
    RunKept source (decompressStart source statics stack) := by
  obtain ⟨d, started, kept⟩ := initDecoder_kept source statics stack
  unfold decompressStart
  split
  · next d' started' =>
    obtain rfl := Option.some.inj (started.symm.trans started')
    rw [decodeWhile]
    split
    · next room => exact .running kept room
    · exact .returned kept (.inl rfl)
  · next none => exact absurd (started.symm.trans none) (by simp)

theorem decodeStep_eq (kept : d.Kept source) :
    ∃ outcome, decodeStep source d = decodeWhile outcome ∧ Advances source d 1 outcome := by
  obtain ⟨outcome, round, advances⟩ := decodeRound_advances kept
  refine ⟨outcome, ?_, advances⟩
  unfold decodeStep
  split
  · next outcome' round' => rw [Option.some.inj (round.symm.trans round')]
  · next none => exact absurd (round.symm.trans none) (by simp)

theorem decompress_kept (source : Source) (statics : Tables) (stack : Nat → BitVec 8)
    (rounds : Nat) : RunKept source (decompress source statics stack rounds) := by
  refine Outcome.run_keeps (decompressStart_kept source statics stack) (fun d past => ?_) rounds
  have kept : d.Kept source := past.kept
  obtain ⟨outcome, round, advances⟩ := decodeStep_eq kept
  rw [round]
  exact decodeWhile_kept advances

theorem decompress_returns (source : Source) (statics : Tables) (stack : Nat → BitVec 8) :
    Outcome.Returns (decodeStep source) (decompressStart source statics stack) := by
  refine (@Outcome.returns_of_measure _ _ _ fun d => d.Kept source ∧ d.out.length < d.dstlen)
    (fun d => d.dstlen - d.out.length) 0 ?_ ?_
  · intro rounds d _ reached
    have past := decompress_kept source statics stack rounds
    rw [decompress, reached] at past
    exact ⟨past.kept, past.room d rfl⟩
  · intro d after known ended
    obtain ⟨outcome, round, advances⟩ := decodeStep_eq known.1
    rw [round] at ended
    cases outcome with
    | returned code d' => exact absurd ended (by simp [decodeWhile])
    | running d' =>
      rw [decodeWhile] at ended
      split at ended
      · obtain rfl := Outcome.running.inj ended
        have longer := advances.2
        have room := known.2
        have length := known.1.length
        have length' := advances.1.length
        omega
      · exact absurd ended (by simp)

/-- **Safety of the decompressor.** Whatever the source, the tables left by the last
call and the stack hold, `Decompress` returns, without a fault; after every symbol at
most `*dstlen` bytes are written and the tables of the symbols are well formed. -/
theorem decompress_safe (source : Source) (statics : Tables) (stack : Nat → BitVec 8) :
    (∃ rounds code d, (code = 0 ∨ code = -1) ∧
        decompress source statics stack rounds = .returned code d) ∧
      ∀ rounds, (∀ d, decompress source statics stack rounds ≠ .returned fault d) ∧
        (decompress source statics stack rounds).state.dstlen = source.dstlen ∧
        (decompress source statics stack rounds).state.out.length ≤ source.dstlen ∧
        (decompress source statics stack rounds).state.tables.WellFormed := by
  have runKept := decompress_kept source statics stack
  refine ⟨?_, fun rounds => ⟨fun d returned => ?_, ?_⟩⟩
  · obtain ⟨rounds, code, d, returned⟩ := decompress_returns source statics stack
    exact ⟨rounds, code, d, (runKept rounds).code code d returned, returned⟩
  · have known := (runKept rounds).code fault d returned
    exact absurd known (by decide)
  · have kept := (runKept rounds).kept
    exact ⟨kept.length, kept.length ▸ kept.written, kept.wellFormed⟩

end PosFirmware.Decompress
