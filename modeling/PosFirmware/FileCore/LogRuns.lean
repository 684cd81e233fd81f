import PosFirmware.FileCore.LogBound

/-! # The log in every run

The running file system and the replay are two disciplines. `InitFileSys` gets from any
memory to a state between entries: where the replay leaves `k_LogPtr` far behind, the size
of the log is above the limit from which the tables are saved.
-/

namespace PosFirmware.FileCore

open PosFirmware.Foundation

variable {D : Type} {board : Board D}

/-! ## The running file system -/

theorem live_between {part : Prog (Fs D) Unit} {slack slack' : Nat}
    (triple : Triple (Bounded slack) part (fun _ => Bounded slack') AllFit) :
    Triple (Between slack) (live part) (fun _ => Between slack') AllFit := by
  refine Triple.bind (m := fun replayed fs => fs.kDataRecover = replayed ∧ Between slack fs)
    (Triple.read fun fs between => ⟨rfl, between⟩) fun replayed => ?_
  cases replayed with
  | true =>
      exact Triple.pure fun fs ⟨replayed, between⟩ =>
        ⟨between.1, fun running => absurd (replayed.symm.trans running) Bool.noConfusion⟩
  | false =>
      exact triple.mono (fun fs ⟨running, between⟩ => between.2 running)
        (fun _ _ bounded => bounded.between) fun _ holds => holds

theorem liveOr_keeps {α : Type} {inv : Fs D → Prop} (beyond : Beyond inv) (value : α)
    {part : Prog (Fs D) α} (quiet : Quiet part) : Keeps inv (liveOr value part) :=
  (Keeps.read _).bind fun _ => (Keeps.pure value).ite (quiet inv beyond)

theorem running_discipline : Discipline board (Between 0) (Between 18) AllFit where
  idleBesides := (between_beyond 0).besides
  startedBesides := (between_beyond 18).besides
  idleStops := fun _ between => between.1
  startedStops := fun _ between => between.1
  idleQuiet := liveOr_keeps (between_beyond 0)
  startedQuiet := liveOr_keeps (between_beyond 18)
  entry := fun _ _ size => live_between (logEntry_bounded size)
  start := fun _ _ size last => live_between (logStart_bounded size last)
  commandOk := live_between logCmdOK_bounded

/-! ## The replay -/

/-- The log is replayed: its copy, and how far the replay is. -/
structure Replaying (log : Nat → Byte) (address : Nat) (fs : Fs D) : Prop where
  fit : AllFit fs
  replayed : fs.kDataRecover = true
  log : fs.gLogSector = log
  located : fs.kLogPtr = address

theorem replaying_besides (log : Nat → Byte) (address : Nat) :
    Besides (Replaying log address : Fs D → Prop) := fun _ _ _ _ replaying =>
  ⟨replaying.fit, replaying.replayed, replaying.log, replaying.located⟩

theorem liveOr_replaying {α : Type} (log : Nat → Byte) (address : Nat) (value : α)
    (part : Prog (Fs D) α) : Keeps (Replaying log address) (liveOr value part) := by
  refine Triple.bind (m := fun replayed fs => replayed = true ∧ Replaying log address fs)
    (Triple.read fun fs replaying => ⟨replaying.replayed, replaying⟩) fun replayed => ?_
  refine Triple.of_fact fun always => ?_
  subst always
  exact Keeps.pure value

theorem replay_discipline (board : Board D) (log : Nat → Byte) (address : Nat) :
    Discipline board (Replaying log address) (Replaying log address) AllFit := by
  have left : ∀ part : Prog (Fs D) Unit,
      Triple (Replaying log address) (live part) (fun _ => Replaying log address) AllFit :=
    fun part => (liveOr_replaying log address () part).mono (fun _ holds => holds)
      (fun _ _ holds => holds) fun _ replaying => replaying.fit
  exact {
    idleBesides := replaying_besides log address
    startedBesides := replaying_besides log address
    idleStops := fun _ replaying => replaying.fit
    startedStops := fun _ replaying => replaying.fit
    idleQuiet := fun value part _ => liveOr_replaying log address value part
    startedQuiet := fun value part _ => liveOr_replaying log address value part
    entry := fun _ _ _ => left _
    start := fun _ _ _ _ => left _
    commandOk := left _ }

theorem advance_replaying (log : Nat → Byte) (address words : Nat) :
    Triple (Replaying log address) (advance words : Prog (Fs D) Unit)
      (fun _ => Replaying log (address + 2 * words)) AllFit :=
  Triple.modify fun _ replaying => ⟨replaying.fit, replaying.replayed, replaying.log,
    congrArg (· + 2 * words) replaying.located⟩

/-- After a round of the replay: it is over, at its place or with the tables to be saved, or
it is at an entry behind. -/
def Round (log : Nat → Byte) (address : Nat) (result : Option Bool) (fs : Fs D) : Prop :=
  match result with
  | some saveFAT => AllFit fs ∧ (saveFAT = false → fs.kLogPtr = address)
  | none => ∃ words ≤ 12, 0 < words ∧ Replaying log (address + 2 * words) fs

theorem endReplay_round {log : Nat → Byte} {address address' : Nat} {saveFAT : Bool}
    (same : saveFAT = false → address' = address) :
    Triple (Replaying log address') (endReplay saveFAT : Prog (Fs D) (Option Bool))
      (Round log address) AllFit :=
  Triple.bind (m := fun _ => Located address')
    (Triple.modify fun _ replaying => ⟨replaying.fit, replaying.located⟩)
    fun _ => Triple.pure fun _ located =>
      ⟨located.1, fun unsaved => located.2.trans (same unsaved)⟩

theorem advance_round {log : Nat → Byte} {address address' words past : Nat}
    (behind : address' + 2 * words = address + 2 * past) (some_ : 0 < past) (few : past ≤ 12) :
    Triple (Replaying log address') (do
      advance words
      pure (none : Option Bool) : Prog (Fs D) (Option Bool)) (Round log address) AllFit :=
  Triple.bind (advance_replaying log address' words) fun _ =>
    Triple.pure fun _ replaying => ⟨past, few, some_, behind ▸ replaying⟩

section

variable (board) (log : Nat → Byte) (address : Nat)

theorem replayCreate_round :
    Triple (Replaying log address) (replayCreate board log address) (Round log address) AllFit := by
  refine Triple.ite (fun _ => endReplay_round nofun) fun _ => ?_
  refine Triple.bind ((replay_discipline board log address).sCreateFile _ _ _ _) fun _ => ?_
  exact advance_round rfl (by decide) (by decide)

theorem replayWrite_round :
    Triple (Replaying log address) (replayWrite board log address) (Round log address) AllFit := by
  have discipline := replay_discipline board log address
  have behind := replay_discipline board log (address + 2 * 9)
  refine Triple.bind (discipline.idlePlain (Plain.inside _ _)) fun _ => ?_
  refine Triple.bind (discipline.idlePlain (Plain.onStatus _ _)) fun _ => ?_
  refine Triple.bind (advance_replaying log address 9) fun _ => ?_
  refine Triple.ite (fun _ => ?_) fun _ => ?_
  · refine Triple.bind (m := fun result fs => result = some true ∧ AllFit fs) ?_ fun result => ?_
    · exact Triple.bind (m := fun _ => AllFit) (Triple.modify fun _ replaying => replaying.fit)
        fun _ => Triple.pure fun _ fit => ⟨rfl, fit⟩
    · refine Triple.of_fact fun ended => ?_
      refine Triple.bind (Plain.statusOf _).quiet.allFit fun status => ?_
      refine Triple.bind (Plain.sCheckUsedBlock board _).quiet.allFit fun _ => ?_
      exact Triple.pure fun _ fit => ended ▸ ⟨fit, nofun⟩
  · refine Triple.bind (behind.sWrite _ _) fun _ => ?_
    exact advance_round (by omega : address + 2 * 9 + 2 * 1 = address + 2 * 10) (by decide) (by decide)

theorem replayRemove_round :
    Triple (Replaying log address) (replayRemove board log address) (Round log address) AllFit := by
  refine Triple.ite (fun _ => endReplay_round nofun) fun _ => ?_
  refine Triple.bind ((replay_discipline board log address).sRemoveId _) fun _ => ?_
  exact advance_round rfl (by decide) (by decide)

theorem replayTruncate_round :
    Triple (Replaying log address) (replayTruncate board log address) (Round log address)
      AllFit := by
  refine Triple.ite (fun _ => endReplay_round nofun) fun _ => ?_
  refine Triple.bind ((replay_discipline board log address).sTruncate _ _) fun _ => ?_
  exact advance_round rfl (by decide) (by decide)

theorem replayExchange_round :
    Triple (Replaying log address) (replayExchange board log address) (Round log address)
      AllFit := by
  refine Triple.ite (fun _ => endReplay_round nofun) fun _ => ?_
  refine Triple.bind ((replay_discipline board log address).sExchangePage _) fun _ => ?_
  exact advance_round rfl (by decide) (by decide)

end

/-- A round that goes on was at a written word. -/
def Step (log : Nat → Byte) (address : Nat) (result : Option Bool) (fs : Fs D) : Prop :=
  Round log address result fs ∧ (result = none → logRead log address ≠ 0xffff)

theorem round_step {log : Nat → Byte} {address command : Nat}
    {prog : Prog (Fs D) (Option Bool)}
    (round : Triple (Replaying log address) prog (Round log address) AllFit)
    (read : logRead log address = command) (written : command ≠ 0xffff) :
    Triple (Replaying log address) prog (Step log address) AllFit :=
  round.mono (fun _ holds => holds) (fun _ _ holds => ⟨holds, fun _ => read ▸ written⟩)
    fun _ holds => holds

theorem replayEntry_step (board : Board D) (log : Nat → Byte) (address : Nat) :
    Triple (Replaying log address) (replayEntry board) (Step log address) AllFit := by
  refine Triple.bind (m := fun at_ fs => at_ = address ∧ Replaying log address fs)
    (Triple.read fun fs replaying => ⟨replaying.located, replaying⟩) fun at_ => ?_
  refine Triple.of_fact fun located => ?_
  subst located
  refine Triple.bind (m := fun copy fs => copy = log ∧ Replaying log at_ fs)
    (Triple.read fun fs replaying => ⟨replaying.log, replaying⟩) fun copy => ?_
  refine Triple.of_fact fun same => ?_
  subst same
  refine Triple.ite (fun known => ?_) fun _ => ?_
  · exact round_step (replayCreate_round board copy at_) known (by decide)
  refine Triple.ite (fun known => ?_) fun _ => ?_
  · exact round_step (replayWrite_round board copy at_) known (by decide)
  refine Triple.ite (fun known => ?_) fun _ => ?_
  · exact round_step (replayRemove_round board copy at_) known (by decide)
  refine Triple.ite (fun known => ?_) fun _ => ?_
  · exact round_step (replayTruncate_round board copy at_) known (by decide)
  refine Triple.ite (fun known => ?_) fun _ => ?_
  · exact round_step (replayExchange_round board copy at_) known (by decide)
  · exact Triple.bind (m := fun _ => Located at_)
      (Triple.modify fun _ replaying => ⟨replaying.fit, replaying.located⟩)
      fun _ => Triple.pure fun _ located => ⟨⟨located.1, fun _ => located.2⟩, nofun⟩

/-! ### How far the replay gets -/

theorem lastWritten_above {log : Nat → Byte} {words offset : Nat}
    (behind : lastWritten log words < LOG_ADDR + 16 + 2 * offset) (within : offset ≤ words) :
    logRead log (LOG_ADDR + 16 + 2 * offset) = 0xffff := by
  induction words with
  | zero =>
      have none_ : offset = 0 := by omega
      subst none_
      exact absurd behind (Nat.lt_irrefl _)
  | succ words ih =>
      rw [lastWritten] at behind
      by_cases written : logRead log (LOG_ADDR + 16 + 2 * (words + 1)) = 0xffff
      · rw [if_neg (not_not_intro written)] at behind
        by_cases last : offset = words + 1
        · exact last ▸ written
        · exact ih behind (by omega)
      · rw [if_pos written] at behind
        omega

theorem logTop_above {log : Nat → Byte} {offset : Nat}
    (behind : logTop log < LOG_ADDR + 16 + 2 * offset)
    (within : LOG_ADDR + 16 + 2 * offset ≤ LOG_END_ADDR) :
    logRead log (LOG_ADDR + 16 + 2 * offset) = 0xffff := by
  refine lastWritten_above behind ?_
  omega

theorem lastWritten_range (log : Nat → Byte) (words : Nat) :
    LOG_ADDR + 16 ≤ lastWritten log words ∧
      lastWritten log words ≤ LOG_ADDR + 16 + 2 * words := by
  induction words with
  | zero => exact ⟨le_rfl, le_rfl⟩
  | succ words ih =>
      rw [lastWritten]
      split
      · exact ⟨by omega, le_rfl⟩
      · exact ⟨ih.1, ih.2.trans (by omega)⟩

theorem logTop_of_short {log : Nat → Byte} (short : ¬ LOG_SIZE / 10 < logSize log) :
    logTop log + 24 ≤ LOG_END_ADDR := by
  have range := lastWritten_range log ((LOG_END_ADDR - (LOG_ADDR + 16)) / 2)
  have room : (LOG_END_ADDR - (LOG_ADDR + 16)) / 2 = 12248 := by
    simp only [LOG_END_ADDR, LOG_SIZE]
    omega
  have top : LOG_END_ADDR = LOG_ADDR + 24512 := by
    rw [LOG_END_ADDR, LOG_SIZE]
    generalize LOG_ADDR = start
    omega
  rw [logSize, ushort, LOG_SIZE] at short
  rw [logTop] at short ⊢
  rw [room] at range short ⊢
  omega

/-- The place of the replay, at a word of the log; within a short log it is at most an entry
behind the last written word. -/
def Reached (log : Nat → Byte) (fs : Fs D) : Prop :=
  ∃ offset, Replaying log (LOG_ADDR + 16 + 2 * offset) fs ∧
    (¬ LOG_SIZE / 10 < logSize log → LOG_ADDR + 16 + 2 * offset ≤ logTop log + 24)

/-- After the replay: bounded, unless the tables are going to be saved. -/
def Replayed (log : Nat → Byte) (saveFAT : Bool) (fs : Fs D) : Prop :=
  AllFit fs ∧ (saveFAT = false → ¬ LOG_SIZE / 10 < logSize log → Bounded 0 fs)

theorem replay_reached (log : Nat → Byte) (fuel : Nat) :
    Triple (Reached log) (Prog.retry (replayEntry board) fuel) (Replayed log) AllFit := by
  refine Triple.retry (fun fs ⟨offset, replaying, reached⟩ => ?_)
    (fun _ ⟨_, replaying, _⟩ => replaying.fit) fuel
  have stepped := replayEntry_step board log (LOG_ADDR + 16 + 2 * offset) fs replaying
  revert stepped
  rcases replayEntry board fs with ⟨_ | _ | saveFAT, fs'⟩
  · exact id
  · rintro ⟨⟨words, few, -, replaying⟩, written⟩
    refine ⟨offset + words, ?_, fun short => ?_⟩
    · rwa [Nat.mul_add, ← Nat.add_assoc]
    · by_contra far
      have reached := reached short
      have top := logTop_of_short short
      refine written rfl (logTop_above ?_ ?_)
      · omega
      · omega
  · rintro ⟨⟨fit, located⟩, -⟩
    refine ⟨fit, fun unsaved short => ⟨fit, ?_, ?_⟩⟩
    · rw [located unsaved]
      omega
    · rw [located unsaved]
      exact (reached short).trans (logTop_of_short short)

/-! ## The start -/

theorem saveCopies_quiet (buf : List Byte) : Quiet (saveCopies board buf) := by
  refine Respects.bind (Respects.firstM fun i => ?_) fun saved => Respects.onlyIf Respects.halt
  refine Respects.bind (Respects.onlyIf ?_) fun _ => ?_
  · exact (Quiet.sEraseSector board _).bind fun _ => Quiet.sEraseSector board _
  · refine (Quiet.sWriteFlash board _ _).bind fun _ => (Respects.pure _).ite ?_
    exact (Quiet.sWriteFlash board _ _).bind fun _ => (Respects.pure _).ite (Respects.pure _)

theorem eraseData_quiet (count : Nat) : Quiet (eraseData board count) := by
  induction count with
  | zero => exact Respects.pure ()
  | succ count ih => exact ih.bind fun _ => Quiet.sEraseSector board _

theorem createFileSys_bounded :
    Triple AllFit (createFileSys board) (fun _ => Bounded 0) AllFit := by
  refine Triple.bind (Quiet.onFlash _).allFit fun _ => ?_
  refine Triple.bind (m := fun _ => AllFit) (Triple.modify fun _ fit => fit) fun _ => ?_
  refine Triple.bind (Plain.onTables _).quiet.allFit fun _ => ?_
  refine Triple.bind (Quiet.forceWrite board).allFit fun _ => ?_
  refine Triple.bind (Plain.quiet (Respects.read _)).allFit fun initLog => ?_
  refine Triple.bind (Respects.onlyIf ((Quiet.sWriteFlash board _ _).bind
    fun _ => Respects.pure ())).allFit fun _ => ?_
  refine Triple.bind (Quiet.sEraseSector board _).allFit fun _ => ?_
  refine Triple.bind (Quiet.sEraseSector board _).allFit fun _ => ?_
  refine Triple.bind (eraseData_quiet _).allFit fun _ => ?_
  refine Triple.bind Plain.tables.quiet.allFit fun saved => ?_
  refine Triple.bind (saveCopies_quiet _).allFit fun _ => ?_
  exact logErase_bounded

theorem createFileSys_allFit (test : Bool) :
    Triple AllFit (onlyIf test (createFileSys board)) (fun _ => AllFit) AllFit :=
  Triple.ite (fun _ => createFileSys_bounded.mono (fun _ holds => holds)
    (fun _ _ bounded => bounded.fit) fun _ holds => holds) fun _ => Triple.pure fun _ fit => fit

theorem repairCopy_quiet : Quiet (repairCopy board) := by
  refine Respects.bind (Respects.firstM fun i => ?_) fun saved => Respects.onlyIf Respects.halt
  refine (Quiet.sEraseSector board _).bind fun _ => ?_
  refine (Plain.sReadFlash board _ _).quiet.bind fun buf => ?_
  refine (Quiet.sWriteFlash board _ _).bind fun _ => (Respects.pure _).ite ?_
  exact (Quiet.sWriteFlash board _ _).bind fun _ => Respects.pure _

theorem loadFAT_plain : Plain (sLoadFAT board) :=
  (Plain.sReadFlash board _ _).bind fun _ => Plain.onTables _

theorem eraseAndLoad_bounded :
    Triple AllFit (sLogErase board >>= fun _ => sLoadFAT board) (fun _ => Bounded 0) AllFit :=
  Triple.bind logErase_bounded fun _ => loadFAT_plain.quiet.bounded 0

theorem initSaved_bounded (log : Nat → Byte) :
    Triple AllFit (initSaved board log) (fun _ => Bounded 0) AllFit := by
  refine Triple.bind (Quiet.forceWrite board).allFit fun _ => ?_
  refine Triple.bind (Respects.onlyIf repairCopy_quiet).allFit fun _ => ?_
  exact eraseAndLoad_bounded

theorem replayLog_bounded (timedOut : Bool) :
    Triple (Located (LOG_ADDR + 16)) (replayLog board timedOut) (fun _ => Bounded 0) AllFit := by
  refine Triple.each fun start located => ?_
  refine Triple.bind (m := fun size fs => size = logSize start.gLogSector ∧ fs = start)
    (Triple.read fun fs same => ⟨same ▸ rfl, same⟩) fun size => ?_
  refine Triple.of_fact fun known => ?_
  subst known
  refine Triple.bind (m := fun _ => Reached start.gLogSector) (Triple.modify fun fs same => ?_)
    fun _ => ?_
  · subst same
    have range := (lastWritten_range fs.gLogSector ((LOG_END_ADDR - (LOG_ADDR + 16)) / 2)).1
    exact ⟨0, ⟨located.1, rfl, rfl, located.2⟩, fun _ => range.trans (Nat.le_add_right _ _)⟩
  refine Triple.bind (replay_reached start.gLogSector board.fuel) fun saveFAT => ?_
  refine Triple.bind (m := fun _ => Bounded 0) (Triple.ite (fun _ => ?_) fun unsaved => ?_)
    fun _ => ?_
  · exact saveFAT_bounded.mono (fun _ replayed => replayed.1) (fun _ _ holds => holds)
      fun _ holds => holds
  · have kept : ¬ (saveFAT = true ∨ LOG_SIZE / 10 < logSize start.gLogSector ∨
        timedOut = true) := by simpa using unsaved
    refine Triple.pure fun fs replayed => replayed.2 ?_ fun long => kept (.inr (.inl long))
    exact Bool.eq_false_iff.mpr fun saved => kept (.inl saved)
  · exact (Plain.onTables _).quiet.bounded 0

theorem tablesLost_plain (log : Nat → Byte) : Plain (tablesLost board log) := by
  refine (Plain.sReadFlash board _ _).bind fun _ => (Respects.pure _).ite ?_
  exact (Plain.sReadFlash board _ _).bind fun _ => (Respects.pure _).ite (Respects.pure _)

theorem readLogSector_quiet : Quiet (readLogSector board) := by
  refine Respects.ite ?_ ?_
  · exact (Plain.sReadFlash board _ _).quiet.bind fun _ => Quiet.onLogSector _
  · exact (Quiet.onFlash _).bind fun _ => Quiet.onLogSector _

theorem initFileSys_bounded (timedOut : Bool) :
    Triple AllFit (initFileSys board timedOut) (fun _ => Bounded 0) AllFit := by
  refine Triple.bind readLogSector_quiet.allFit fun _ => ?_
  refine Triple.bind (m := fun _ => AllFit) (Triple.modify fun _ fit => fit) fun _ => ?_
  refine Triple.bind (Plain.quiet (Respects.read _)).allFit fun log => ?_
  refine Triple.bind (tablesLost_plain log).quiet.allFit fun lost => ?_
  refine Triple.bind (createFileSys_allFit lost) fun _ => ?_
  refine Triple.bind (Plain.quiet (Respects.read _)).allFit fun initLog => ?_
  refine Triple.bind (createFileSys_allFit _) fun _ => ?_
  refine Triple.bind (m := fun _ => AllFit) (Triple.modify fun _ fit => fit) fun _ => ?_
  refine Triple.bind (Plain.quiet (Respects.read _)).allFit fun log => ?_
  refine Triple.ite (fun _ => eraseAndLoad_bounded) fun _ => ?_
  refine Triple.ite (fun _ => initSaved_bounded log) fun _ => ?_
  refine Triple.bind loadFAT_plain.quiet.allFit fun _ => ?_
  refine Triple.bind (m := fun _ => Located (LOG_ADDR + 16))
    (Triple.modify fun _ fit => ⟨fit, rfl⟩) fun _ => ?_
  refine Triple.ite (fun _ => Triple.pure fun fs located => ?_) fun _ => replayLog_bounded timedOut
  refine ⟨located.1, located.2.ge, ?_⟩
  rw [located.2]
  simp only [LOG_END_ADDR, LOG_SIZE]
  omega

/-! ## Calls and sessions -/

/-- A call that ends between entries. -/
abbrev Ends {α : Type} (prog : Prog (Fs D) α) : Prop :=
  Triple (Between 0) prog (fun _ => Between 0) AllFit

theorem ends_of_bounded {prog : Prog (Fs D) Unit}
    (triple : Triple AllFit prog (fun _ => Bounded 0) AllFit) : Ends prog :=
  triple.mono (fun _ between => between.1) (fun _ _ bounded => bounded.between)
    fun _ holds => holds

theorem ends_pure {α : Type} (value : α) : Ends (pure value : Prog (Fs D) α) :=
  Triple.pure fun _ between => between

theorem ends_plain {α : Type} {prog : Prog (Fs D) α} (plain : Plain prog) : Ends prog :=
  (plain _ (between_beyond 0).besides).mono (fun _ holds => holds) (fun _ _ holds => holds)
    fun _ between => between.1

theorem ends_error (error : Errno) (value : Int) :
    Ends (setErrno error >>= fun _ => pure value : Prog (Fs D) Int) :=
  ends_plain ((Plain.setErrno error).bind fun _ => Respects.pure value)

theorem sOpen_ends (appNum : Option Byte) (filename : List Byte) (mode : Nat)
    (attr type : Byte) : Ends (sOpen board appNum filename mode attr type) := by
  refine Triple.ite (fun _ => ends_error _ _) fun _ => ?_
  refine Triple.bind (ends_plain (Plain.sSearchFile _ _ _)) fun found => ?_
  cases found with
  | some fd =>
      exact Triple.ite (fun _ => ends_error _ _) fun _ => ends_plain (Plain.openAt fd)
  | none =>
      refine Triple.ite (fun _ => ends_error _ _) fun _ => ?_
      refine Triple.bind (ends_plain Plain.tables) fun before => ?_
      split
      · exact ends_error _ _
      · refine Triple.bind (running_discipline.sCreateFile _ _ _ _) fun _ => ?_
        exact ends_plain (Plain.openAt _)

theorem openFile_ends (appNum : Option Byte) (filename : List Byte) (mode : Nat) :
    Ends (openFile board appNum filename mode) := by
  cases appNum with
  | none => exact ends_pure _
  | some num => exact Triple.ite (fun _ => ends_error _ _) fun _ => sOpen_ends _ _ _ _ _

theorem exOpen_ends (appNum : Option Byte) (filename : List Byte) (mode : Nat)
    (attr type : Byte) : Ends (exOpen board appNum filename mode attr type) := by
  cases appNum with
  | none => exact ends_pure _
  | some num =>
      refine Triple.ite (fun _ => ends_error _ _) fun _ => ?_
      refine Triple.ite (fun _ => ?_) fun _ => ends_error _ _
      refine Triple.bind (ends_plain (Plain.sSearchFile _ _ _)) fun found => ?_
      cases found with
      | some fd => exact sOpen_ends _ _ _ _ _
      | none => exact ends_error _ _

theorem close_plain (fd : Int) : Plain (close fd : Prog (Fs D) Int) := by
  refine (Plain.sCheckFid fd).bind fun _ => Respects.ite ?_ (Respects.pure _)
  exact (Plain.onTables _).bind fun _ => Respects.pure _

theorem closefile_plain (fd : Int) : Plain (closefile fd : Prog (Fs D) Int) := by
  refine (Plain.sCheckFid fd).bind fun _ => Respects.ite ?_ (Respects.pure _)
  refine (Respects.read _).bind fun attr => (Respects.pure _).ite ?_
  exact (Plain.onTables _).bind fun _ => Respects.pure _

theorem sRemove_ends (appNum : Option Byte) (filename : List Byte) (fattr : Option Byte) :
    Ends (sRemove board appNum filename fattr) := by
  refine Triple.bind (ends_plain (Plain.sSearchFile _ _ _)) fun found => ?_
  cases found with
  | none => exact ends_pure _
  | some fd => exact Triple.bind (running_discipline.sRemoveId fd) fun _ => ends_pure _

theorem removeFile_ends (appNum : Option Byte) (filename : List Byte) (fattr : Option Byte) :
    Ends (removeFile board appNum filename fattr) := by
  refine Triple.bind (ends_plain (Plain.sSearchFile _ _ _)) fun found => ?_
  cases found with
  | none => exact ends_pure _
  | some fd =>
      refine Triple.bind (ends_plain Plain.tables) fun before => ?_
      refine Triple.ite (fun _ => ends_error _ _) fun _ => ?_
      exact Triple.bind (running_discipline.sRemoveId fd) fun _ => ends_pure _

theorem sRenameFile_ends (fd : Nat) (filename : List Byte) (attr type : Byte) :
    Ends (sRenameFile board fd filename attr type) := by
  refine Triple.bind (ends_plain (Plain.inside _ _)) fun _ => ?_
  refine Triple.bind (ends_plain (Plain.onTables _)) fun _ => ?_
  exact ends_of_bounded saveFAT_bounded

theorem seek_plain (fd offset : Int) (origin : Option Origin) :
    Plain (seek fd offset origin : Prog (Fs D) Int) := by
  have error : ∀ error : Errno, Plain (setErrno error >>= fun _ => pure (-1) : Prog (Fs D) Int) :=
    fun error => (Plain.setErrno error).bind fun _ => Respects.pure (-1)
  refine (Plain.sCheckFid fd).bind fun _ => Respects.ite ?_ (Respects.pure _)
  refine Plain.tables.bind fun before => ?_
  cases origin with
  | none => exact error _
  | some origin =>
      refine (error _).ite ((error _).ite ?_)
      exact (Plain.onTables _).bind fun _ => Respects.pure _

theorem readPages_plain (fuel upBlock : Nat) (len : Int) :
    Plain (readPages board fuel upBlock len) := by
  induction fuel generalizing upBlock len with
  | zero => exact Respects.halt
  | succ fuel ih =>
      refine (Respects.read _).bind fun tmpBlock => Respects.ite ?_ ?_
      · exact (Plain.sReadFlash board _ _).bind fun _ => Respects.pure _
      · refine (Plain.sReadFlash board _ _).bind fun _ => ?_
        exact (ih _ _).bind fun _ => Respects.pure _

theorem sRead_plain (fd : Nat) (len : Int) : Plain (sRead board fd len) := by
  refine Plain.tables.bind fun before => (Respects.pure _).ite (Respects.ite ?_ ?_)
  · refine (Plain.sReadFlash board _ _).bind fun _ => ?_
    exact (Plain.onTables _).bind fun _ => Respects.pure _
  · refine ((Respects.pure _).ite (Plain.sReadFlash board _ _)).bind fun _ => ?_
    refine (readPages_plain _ _ _).bind fun _ => ?_
    exact (Plain.onTables _).bind fun _ => Respects.pure _

theorem write_ends (fd : Int) (dat : List Byte) (len : Int) : Ends (write board fd dat len) := by
  refine Triple.bind (ends_plain (Plain.sCheckFid fd)) fun _ => ?_
  refine Triple.ite (fun _ => ?_) fun _ => ends_pure _
  refine Triple.ite (fun _ => ends_pure _) fun _ => ?_
  refine Triple.bind (ends_plain (Plain.onStatus _ _)) fun _ => ?_
  exact Triple.bind (running_discipline.sWrite _ _) fun _ => ends_pure _

theorem truncate_ends (fd len : Int) : Ends (truncate board fd len) := by
  refine Triple.bind (ends_plain (Plain.sCheckFid fd)) fun _ => ?_
  refine Triple.ite (fun _ => ?_) fun _ => ends_pure _
  refine Triple.bind (ends_plain (Respects.read _)) fun size => ?_
  refine Triple.ite (fun _ => ends_error _ _) fun _ => ?_
  refine Triple.ite (fun _ => ends_error _ _) fun _ => ?_
  refine Triple.ite (fun _ => ends_pure _) fun _ => ?_
  exact Triple.bind (running_discipline.sTruncate _ _) fun _ => ends_pure _

theorem fsRecycle_ends (needSize : Int) : Ends (fsRecycle board needSize) := by
  refine Triple.ite (fun _ => ends_pure _) fun _ => ?_
  refine Triple.bind (ends_plain (Respects.read _)) fun kLogPtr => ?_
  refine Triple.bind (m := fun _ => Between 0) (Triple.ite (fun _ => ?_) fun _ => ends_pure _)
    fun _ => ?_
  · exact ends_of_bounded saveFAT_bounded
  refine Triple.bind (ends_plain Plain.tables) fun before => ?_
  refine Triple.ite (fun _ => ends_pure _) fun _ => ?_
  refine Triple.ite (fun _ => ?_) fun _ => running_discipline.recycleBytes _ _
  exact Triple.ite (fun _ => running_discipline.sRecycleBlocks) fun _ => ends_pure _

theorem perform_ends (call : Call) : Ends (perform board call) := by
  have done {α : Type} {prog : Prog (Fs D) α} (ends : Ends prog) :
      Ends (prog >>= fun _ => pure ()) := Triple.bind ends fun _ => ends_pure ()
  cases call with
  | openFile appNum filename mode => exact done (openFile_ends _ _ _)
  | exOpen appNum filename mode attr type => exact done (exOpen_ends _ _ _ _ _)
  | sOpen appNum filename mode attr type => exact done (sOpen_ends _ _ _ _ _)
  | close fd => exact done (ends_plain (close_plain fd))
  | closefile fd => exact done (ends_plain (closefile_plain fd))
  | removeFile appNum filename fattr => exact done (removeFile_ends _ _ _)
  | sRemove appNum filename fattr => exact done (sRemove_ends _ _ _)
  | sRemoveId fd => exact running_discipline.sRemoveId fd
  | sRenameFile fd filename attr type => exact sRenameFile_ends _ _ _ _
  | seek fd offset origin => exact done (ends_plain (seek_plain _ _ _))
  | read fd len =>
      refine done (Triple.bind (ends_plain (Plain.sCheckFid fd)) fun _ => ?_)
      exact Triple.ite (fun _ => ends_plain (sRead_plain _ _)) fun _ => ends_pure _
  | write fd dat len => exact done (write_ends _ _ _)
  | truncate fd len => exact done (truncate_ends _ _)
  | fsRecycle needSize => exact fsRecycle_ends needSize
  | createFileSys => exact ends_of_bounded createFileSys_bounded
  | initFileSys timedOut => exact ends_of_bounded (initFileSys_bounded timedOut)

theorem performAll_ends (calls : List Call) : Ends (performAll board calls) := by
  induction calls with
  | nil => exact ends_pure ()
  | cons call rest ih => exact Triple.bind (perform_ends call) fun _ => ih

theorem session_allFit (session : Session) :
    Triple AllFit (session.run board) (fun _ => AllFit) AllFit := by
  refine Triple.bind (initFileSys_bounded session.timedOut) fun _ => ?_
  exact (performAll_ends session.calls).mono (fun _ bounded => bounded.between)
    (fun _ _ between => between.1) fun _ holds => holds

theorem sessions_allFit (list : List Session) {fs : Fs D} (fit : AllFit fs) :
    AllFit (sessions board list fs) := by
  induction list generalizing fs with
  | nil => exact fit
  | cons session rest ih =>
      have started : AllFit (powerOn fs.flash fs.logged) := fit
      exact ih ((session_allFit session).final started)

/-- **The operation log never overruns its part of the sector.** On any chip, whatever its
contents and whatever reads, writes and erases do, in every run of sessions every write to
the log ends in front of the version flag, and entries start up to `LOG_END_ADDR` only. -/
theorem log_stays_inside (board : Board D) (flash : D) (list : List Session) :
    ∀ write ∈ (sessions board list (powerOn flash [])).logged, write.Fits :=
  sessions_allFit list fun _ member => absurd member List.not_mem_nil

/-- A chip that accepts every write and stores nothing. -/
def deafBoard : Board Unit where
  hynix := true
  nandWrite := fun _ _ _ => (some false, ())
  nandRead := fun _ _ _ => ([], ())
  nandErase := fun _ _ => (some (), ())
  otherWriteLog := fun _ _ _ => (some false, ())
  otherReadLog := fun _ => ([], ())
  otherEraseLog := fun _ => (some (), ())
  otherForceWrite := fun _ => (some (), ())
  sCreateBlockMapTable := fun _ => (some (), ())
  dataSectors := 0
  stray := fun _ => 0
  strayPage := 0
  fuel := 1

/-- A session that creates the file `A`. -/
def makesA : Session := ⟨false, [.sOpen (some 0) (text "A") O_CREATE 0 4]⟩

theorem log_stays_inside_made :
    LogWrite.Fits ⟨LOG_ADDR + 16, wordBytes CREATE_FILE ++ wordBytes 0 ++ [0, 4] ++
      text "A" ++ List.replicate 15 0 ++ wordBytes CMD_OK, true⟩ :=
  log_stays_inside deafBoard () [makesA] _ (by decide +kernel)

end PosFirmware.FileCore
