import PosFirmware.Decompress.DecoderSafety

/-! # The arithmetic of the decompressor

Whatever the source is, every symbol and every position is decoded with words that are the numbers
they stand for, and leaves an interval longer than a quarter of the whole one
(`decompress_exact`).
-/

namespace PosFirmware.Decompress

open PosFirmware.Foundation

variable {source : Source} {d : Decoder} {outcome : Outcome Decoder}

/-- The steps of the arithmetic code in a round: the symbol, and a position when the symbol stands
for a repetition. -/
structure ExactRound (source : Source) (d : Decoder) : Prop where
  wide : d.coder.Wide
  steps : ∃ sym c tables, decodeSym source d.tables d.coder = some (sym, c) ∧
    (1 ≤ sym ∧ sym ≤ SYMBOLS) ∧
    Exact source d.tables.symCum (getSym d.tables) (fun sym => wsub sym 1) (fun sym => sym)
      d.coder sym c ∧
    updateNode d.tables sym = some tables ∧
    (256 ≤ d.tables.symChar sym → ∃ i c', decodePos source tables c = some (i, c') ∧
      i < POSITIONS ∧
      Exact source tables.posCum (getPos tables) (fun i => i) (fun i => i + 1) c i c')

theorem Decoder.Kept.exactRound (kept : d.Kept source) (wide : d.coder.Wide) :
    ExactRound source d := by
  obtain ⟨sym, c, decoded, ⟨first, last⟩, exact_⟩ :=
    (@decodeSym_exact source) kept.wellFormed kept.holds
  obtain ⟨tables, updated, -, posCum⟩ := updateNode_wellFormed kept.wellFormed first last
  have positioned : tables.Positioned := ⟨posCum ▸ kept.positioned.cumulative,
    posCum ▸ kept.positioned.total⟩
  exact ⟨wide, sym, c, tables, decoded, ⟨first, last⟩, exact_, updated,
    fun _ => (@decodePos_exact source) positioned exact_.holds⟩

/-! ## The interval between the rounds -/

theorem Decoder.put_coder {byte : BitVec 8} (written : d.put byte = some outcome) :
    outcome.state.coder = d.coder := by
  unfold Decoder.put at written
  split at written
  · obtain rfl := Option.some.inj written
    rfl
  · obtain ⟨dataBuf, -, stored⟩ := Option.bind_eq_some_iff.mp written
    obtain rfl := Option.some.inj stored
    rfl

theorem copyLoop_coder {i left k : Nat} (copied : copyLoop i left k d = some outcome) :
    outcome.state.coder = d.coder := by
  induction left generalizing d k with
  | zero =>
    obtain rfl := Option.some.inj copied
    rfl
  | succ left past =>
    obtain ⟨byte, -, goesOn⟩ := Option.bind_eq_some_iff.mp copied
    obtain ⟨between, written, goesOn⟩ := Option.bind_eq_some_iff.mp goesOn
    have same := Decoder.put_coder written
    cases between with
    | running d' => exact (past goesOn).trans same
    | returned code d' =>
      obtain rfl := Option.some.inj goesOn
      exact same

theorem decodeRound_wide (exact_ : ExactRound source d) (round : decodeRound source d = some outcome) :
    outcome.state.coder.Wide := by
  obtain ⟨-, sym, c, tables, decoded, -, symbol, updated, position⟩ := exact_
  rw [decodeRound, decoded, Option.bind_eq_bind, Option.bind_some] at round
  obtain ⟨char, read, round⟩ := Option.bind_eq_some_iff.mp round
  rw [updated, Option.bind_eq_bind, Option.bind_some] at round
  dsimp only at round
  split at round
  · rw [Decoder.put_coder round]
    exact symbol.wide
  · next repeats =>
    have known : d.tables.symChar sym = char := by
      unfold readAt at read
      split at read
      · exact Option.some.inj read
      · exact absurd read (by simp)
    obtain ⟨i, c', found, -, place⟩ := position (known ▸ not_lt.mp repeats)
    rw [repetition, found, Option.bind_eq_bind, Option.bind_some] at round
    rw [copyLoop_coder round]
    exact place.wide

theorem decodeWhile_state (outcome : Outcome Decoder) :
    (decodeWhile outcome).state = outcome.state := by
  cases outcome with
  | returned code d => rfl
  | running d =>
    rw [decodeWhile]
    split
    · rfl
    · rfl

theorem initCoder_wide (source : Source) : (initCoder source).Wide := by
  obtain ⟨low, high, -⟩ := (@Coder.fill_spec source ⟨0, 0x20000, 0, 0, 0, 4⟩ 17) (by decide)
  unfold Coder.Wide initCoder
  rw [low, high]
  decide

theorem decompressStart_wide (source : Source) (statics : Tables) (stack : Nat → BitVec 8) :
    (decompressStart source statics stack).state.coder.Wide := by
  unfold decompressStart
  split
  · next d started =>
    rw [decodeWhile_state]
    rw [initDecoder, Option.bind_eq_bind] at started
    obtain ⟨tables, -, started⟩ := Option.bind_eq_some_iff.mp started
    rw [Option.bind_eq_bind] at started
    obtain ⟨dataBuf, -, started⟩ := Option.bind_eq_some_iff.mp started
    obtain rfl := Option.some.inj started
    exact initCoder_wide source
  · exact initCoder_wide source

/-- **The arithmetic of the decompressor.** Whatever the source, the tables left by the last call
and the stack hold, after every number of symbols the interval around the value is longer than a
quarter, and the next symbol and position are decoded exactly. -/
theorem decompress_exact (source : Source) (statics : Tables) (stack : Nat → BitVec 8)
    (rounds : Nat) : ExactRound source (decompress source statics stack rounds).state := by
  have kept : ∀ rounds, (decompress source statics stack rounds).state.Kept source :=
    fun rounds => (decompress_kept source statics stack rounds).kept
  refine (kept rounds).exactRound ?_
  refine @Outcome.run_keeps_of _ _ _ (fun outcome : Outcome Decoder => outcome.state.coder.Wide)
    (fun d : Decoder => d.Kept source) (fun rounds d reached => ?_)
    (decompressStart_wide source statics stack) (fun d kept wide => ?_) rounds
  · have here := kept rounds
    rwa [decompress, reached] at here
  · obtain ⟨outcome, round, -⟩ := decodeRound_advances kept
    have stepped : decodeStep source d = decodeWhile outcome := by
      unfold decodeStep
      rw [round]
    rw [stepped, decodeWhile_state]
    exact decodeRound_wide (kept.exactRound wide) round

end PosFirmware.Decompress
